import DiceTable.Proofs.Json.Compact
import DiceTable.Wire.Handshake
import Mathlib.Data.List.Count

/-!
# What the handshake sends

A handshake has no memory: what it does about a message does not depend on the messages before it.
So it sends the key each time the server opens the engine session, and it is done at the first
acknowledgement, whether or not the key was sent by then.  The key is sent exactly once if the
server opens the session exactly once before it acknowledges (`key_sent_at_each_opening`);
otherwise it may be sent twice or not at all (`accepted_without_key`).

## Strategy

`respond` says what one arrival leads to: the end, or messages to be sent while the handshake goes
on.  A handshake waits as long as every arrival lets it (`await_result_eq_none_iff`), and the keys
sent meanwhile are counted arrival by arrival (`count_key_of_waiting`).  The arrivals of a
handshake that has ended are a stretch of waiting, the arrival that ended it, and what is left
(`exists_last`).
-/

namespace DiceTable

/-- What a message over Socket.IO says, if it can be read. -/
def Arrival.incoming? : Arrival → Option Incoming
  | .message octets => (WireFormat.socketIo.decode octets).toOption
  | _ => none

namespace Handshake

/-! ## The key -/

/-- The message with the key: the digits of a connection to the default namespace, and an object
that holds the key and nothing else. -/
def keyText (apiKey : String) : String :=
  "40" ++ (Json.Value.object [("apiKey", .string apiKey)]).compact

/-- What stands behind the digits is read as this object. -/
theorem exists_body_keyText (apiKey : String) :
    ∃ body, keyText apiKey = "40" ++ body ∧
      (Json.Tree.ofText? body).bind Json.Value.ofTree? =
        some (.object [("apiKey", .string apiKey)]) := by
  have hplain : (Json.Value.object [("apiKey", .string apiKey)]).Plain Json.greatestDepth :=
    .object (List.forall_mem_singleton.mpr (.string apiKey))
  exact ⟨_, rfl, Json.Value.ofText?_compact hplain⟩

/-! ## One arrival -/

/-- What an arrival leads to: a result, or messages to be sent while the handshake goes on. -/
def respond (apiKey : String) (fault : Option TransportError) :
    Arrival → Except (Except ClientError Unit) (List String)
  | .ended => .error (.error endedEarly)
  | .failed reason => .error (.error (.transport (.receiveFailed reason)))
  | .message octets =>
    match react .socketIo apiKey octets with
    | .finish result => .error result
    | .wait => .ok []
    | .answer text =>
      match fault with
      | some e => .error (.error (.transport e))
      | none => .ok [text]

variable {apiKey : String} {fault : Option TransportError} {a : Arrival} {arrivals : List Arrival}

theorem await_cons (a : Arrival) (rest : List Arrival) :
    await .socketIo apiKey fault (a :: rest) =
      match respond apiKey fault a with
      | .error result => ⟨[], rest, some result⟩
      | .ok texts =>
        { await .socketIo apiKey fault rest with
          sent := texts ++ (await .socketIo apiKey fault rest).sent } := by
  cases a with
  | ended => rfl
  | failed reason => rfl
  | message octets =>
      rw [await, respond]
      cases react .socketIo apiKey octets with
      | finish result => rfl
      | wait => rfl
      | answer text => cases fault <;> rfl

/-- The ways in which an arrival can be responded to. -/
inductive Response (apiKey : String) (a : Arrival) :
    Except (Except ClientError Unit) (List String) → Prop where
  | key (hincoming : a.incoming? = some .opened) :
      Response apiKey a (.ok [keyText apiKey])
  | pong (hincoming : a.incoming? = some .ping) : Response apiKey a (.ok ["3"])
  | silence (hincoming : a.incoming? ≠ some .opened) : Response apiKey a (.ok [])
  | success (hincoming : a.incoming? = some .connected) : Response apiKey a (.error (.ok ()))
  | failure (error : ClientError) : Response apiKey a (.error (.error error))

theorem response_respond (apiKey : String) (fault : Option TransportError) (a : Arrival) :
    Response apiKey a (respond apiKey fault a) := by
  cases a with
  | ended => exact .failure _
  | failed reason => exact .failure _
  | message octets =>
      rw [respond, react]
      cases hdecode : WireFormat.socketIo.decode octets with
      | error e => exact .failure _
      | ok incoming =>
          have hincoming : (Arrival.message octets).incoming? = some incoming := by
            rw [Arrival.incoming?, hdecode, Except.toOption]
          -- What is answered ends the handshake if nothing can be sent.
          cases incoming with
          | opened =>
              cases fault with
              | none => exact .key hincoming
              | some e => exact .failure _
          | ping =>
              cases fault with
              | none => exact .pong hincoming
              | some e => exact .failure _
          | connected => exact .success hincoming
          | refused reason => exact .failure _
          | closed => exact .failure _
          | event frame => exact .silence (by simp [hincoming])
          | ignored => exact .silence (by simp [hincoming])

theorem keyText_ne_pong : keyText apiKey ≠ "3" := by
  intro h
  have hchars := congrArg String.toList h
  simp [keyText] at hchars

/-- While the handshake goes on, the key is sent when the engine session is opened and at no other
time. -/
theorem count_key_of_respond {texts : List String} (h : respond apiKey fault a = .ok texts) :
    texts.count (keyText apiKey) = if a.incoming? = some .opened then 1 else 0 := by
  have hresponse := response_respond apiKey fault a
  rw [h] at hresponse
  cases hresponse with
  | key hincoming => rw [if_pos hincoming, List.count_singleton_self]
  | pong hincoming =>
      rw [if_neg (by simp [hincoming])]
      exact List.count_eq_zero.mpr fun hmem => keyText_ne_pong (List.mem_singleton.mp hmem)
  | silence hincoming => rw [if_neg hincoming, List.count_nil]

theorem incoming_of_respond (h : respond apiKey fault a = .error (.ok ())) :
    a.incoming? = some .connected := by
  have hresponse := response_respond apiKey fault a
  rw [h] at hresponse
  cases hresponse with
  | success hincoming => exact hincoming

/-! ## A stretch of waiting -/

theorem await_result_eq_none_iff :
    (await .socketIo apiKey fault arrivals).result = none ↔
      ∀ a ∈ arrivals, ∃ texts, respond apiKey fault a = .ok texts := by
  induction arrivals with
  | nil => simp [await]
  | cons a rest ih =>
      rw [await_cons, List.forall_mem_cons, ← ih]
      cases respond apiKey fault a <;> simp

theorem count_key_of_waiting (h : (await .socketIo apiKey fault arrivals).result = none) :
    (await .socketIo apiKey fault arrivals).sent.count (keyText apiKey) =
      arrivals.countP fun a => a.incoming? = some .opened := by
  induction arrivals with
  | nil => rfl
  | cons a rest ih =>
      rw [await_cons] at h ⊢
      cases hrespond : respond apiKey fault a with
      | error result => simp [hrespond] at h
      | ok texts =>
          rw [hrespond] at h
          rw [List.count_append, count_key_of_respond hrespond, ih h, List.countP_cons,
            Nat.add_comm]
          simp

/-- Whatever arrives after a stretch of waiting, the handshake goes on from there. -/
theorem await_append {past : List Arrival}
    (h : (await .socketIo apiKey fault past).result = none) (later : List Arrival) :
    await .socketIo apiKey fault (past ++ later) =
      { await .socketIo apiKey fault later with
        sent := (await .socketIo apiKey fault past).sent ++
          (await .socketIo apiKey fault later).sent } := by
  induction past with
  | nil => rfl
  | cons a past ih =>
      rw [List.cons_append, await_cons, await_cons]
      rw [await_cons] at h
      cases hrespond : respond apiKey fault a with
      | error result => simp [hrespond] at h
      | ok texts =>
          rw [hrespond] at h
          simp [ih h]

/-- A handshake that has ended has waited up to the arrival that ended it. -/
theorem exists_last {result : Except ClientError Unit}
    (h : (await .socketIo apiKey fault arrivals).result = some result) :
    ∃ past last rest, arrivals = past ++ last :: rest ∧
      (await .socketIo apiKey fault past).result = none ∧
      respond apiKey fault last = .error result := by
  induction arrivals with
  | nil => simp [await] at h
  | cons a arrivals ih =>
      rw [await_cons] at h
      cases hrespond : respond apiKey fault a with
      | error ended =>
          -- Nothing was waited for.
          obtain rfl : ended = result := by simpa [hrespond] using h
          exact ⟨[], a, arrivals, rfl, rfl, hrespond⟩
      | ok texts =>
          rw [hrespond] at h
          obtain ⟨past, last, rest, rfl, hwaiting, hlast⟩ := ih h
          refine ⟨a :: past, last, rest, rfl, ?_, hlast⟩
          rw [await_cons, hrespond]
          exact hwaiting

/-- **The key is sent at each opening.**  If a handshake over Socket.IO succeeds, the arrivals up to
the first acknowledgement kept it waiting, and at any time until then it had sent the key as many
times as the server had opened the engine session.  The acknowledgement is not answered, so that
this is how often the key is sent at all: exactly once if the server opened the session exactly once
before.  The message that is counted here is the digits `40` and a text of the object that holds
this key under `apiKey`. -/
theorem key_sent_at_each_opening (apiKey : String) (fault : Option TransportError)
    (arrivals : List Arrival)
    (hconnected : (start .socketIo apiKey fault arrivals).result = some (.ok ())) :
    let keysSent (seen : List Arrival) : Nat :=
      (start .socketIo apiKey fault seen).sent.count (keyText apiKey)
    let openings (seen : List Arrival) : Nat :=
      seen.countP fun a => a.incoming? = some .opened
    (∃ body, keyText apiKey = "40" ++ body ∧
      (Json.Tree.ofText? body).bind Json.Value.ofTree? =
        some (.object [("apiKey", .string apiKey)])) ∧
    ∃ past acknowledgement rest, arrivals = past ++ acknowledgement :: rest ∧
      acknowledgement.incoming? = some .connected ∧
      (∀ seen, seen <+: past →
        (start .socketIo apiKey fault seen).result = none ∧ keysSent seen = openings seen) ∧
      keysSent arrivals = openings past := by
  intro keysSent openings
  obtain ⟨past, last, rest, rfl, hwaiting, hlast⟩ := exists_last hconnected
  refine ⟨exists_body_keyText apiKey, past, last, rest, rfl, incoming_of_respond hlast, ?_, ?_⟩
  · intro seen hseen
    have hresult : (await .socketIo apiKey fault seen).result = none :=
      await_result_eq_none_iff.mpr fun a ha =>
        await_result_eq_none_iff.mp hwaiting a (hseen.subset ha)
    exact ⟨hresult, count_key_of_waiting hresult⟩
  · have hsent : (await .socketIo apiKey fault (past ++ last :: rest)).sent =
        (await .socketIo apiKey fault past).sent := by
      rw [await_append hwaiting, await_cons, hlast, List.append_nil]
    show (await .socketIo apiKey fault (past ++ last :: rest)).sent.count _ = _
    rw [hsent]
    exact count_key_of_waiting hwaiting

/-- A ping, the opening and the acknowledgement: the key is sent once. -/
theorem key_sent_at_each_opening_orderly :
    let arrivals : List Arrival := [.message [0x32], .message [0x30], .message [0x34, 0x30]]
    (start .socketIo "key" none arrivals).result = some (.ok ()) ∧
      ∃ past acknowledgement rest, arrivals = past ++ acknowledgement :: rest ∧
        acknowledgement.incoming? = some .connected ∧
        (start .socketIo "key" none arrivals).sent.count "40\x7b\"apiKey\":\"key\"\x7d" =
          past.countP fun a => a.incoming? = some .opened := by
  intro arrivals
  have hconnected : (start .socketIo "key" none arrivals).result = some (.ok ()) := rfl
  obtain ⟨-, past, acknowledgement, rest, hsplit, hincoming, -, hsent⟩ :=
    key_sent_at_each_opening "key" none arrivals hconnected
  exact ⟨hconnected, past, acknowledgement, rest, hsplit, hincoming, hsent⟩

/-- A server that acknowledges at once is accepted without the key, and one that opens the engine
session twice is sent the key twice. -/
theorem accepted_without_key :
    let hasty := start .socketIo "key" none [.message [0x34, 0x30]]
    let repetitive := start .socketIo "key" none
      [.message [0x30], .message [0x30], .message [0x34, 0x30]]
    (hasty.result = some (.ok ()) ∧ hasty.sent = []) ∧
      repetitive.result = some (.ok ()) ∧
        repetitive.sent = ["40\x7b\"apiKey\":\"key\"\x7d", "40\x7b\"apiKey\":\"key\"\x7d"] :=
  ⟨⟨rfl, rfl⟩, rfl, rfl⟩

end Handshake

end DiceTable
