import DiceTable.Proofs.Wire.Handshake

/-!
# How the handshake ends

A handshake is a loop over whatever the server sends, with four ways out and two kinds of messages
that are answered on the way.  Nothing that was sent before makes a difference to it, so that each
arrival decides the result by itself, or leaves it open (`verdict?`), and the first arrival that
decides is the last one that is read.

## Strategy

`verdict?` and `answer?` say what an arrival means, and `respond_eq` that the handshake does
accordingly.  What is sent, what is read and what comes of it follow by induction over the
arrivals before the first verdict (`await_of_first`).
-/

namespace DiceTable.Handshake

/-- The result that an arrival decides, if it decides one. -/
def verdict? : Arrival → Option (Except ClientError Unit)
  | .ended => some (.error (.transport (.connectionClosed "closed during handshake")))
  | .failed reason => some (.error (.transport (.receiveFailed reason)))
  | .message octets =>
    match WireFormat.socketIo.decode octets with
    | .error e => some (.error (.protocol e))
    | .ok .connected => some (.ok ())
    | .ok (.refused reason) => some (.error (.refused reason))
    | .ok .closed => some (.error (.transport (.connectionClosed "server ended the handshake")))
    | .ok _ => none

/-- What an arrival asks for: the key when the engine session is opened, and a pong for a ping. -/
def answer? (apiKey : String) (a : Arrival) : Option String :=
  match a.incoming? with
  | some .opened => some (keyText apiKey)
  | some .ping => some "3"
  | _ => none

variable {apiKey : String}

/-- An arrival ends the handshake with its verdict, and is answered if it has none. -/
theorem respond_eq (a : Arrival) :
    respond apiKey none a =
      match verdict? a with
      | some result => .error result
      | none => .ok (answer? apiKey a).toList := by
  cases a with
  | ended => rfl
  | failed reason => rfl
  | message octets =>
      rw [respond, react, verdict?, answer?, Arrival.incoming?]
      cases WireFormat.socketIo.decode octets with
      | error e => rfl
      | ok incoming => cases incoming <;> rfl

/-- The handshake reads up to the first verdict, and answers what comes before it. -/
theorem await_of_first {before : List Arrival} {decisive : Arrival}
    {result : Except ClientError Unit} (hbefore : ∀ a ∈ before, verdict? a = none)
    (hdecisive : verdict? decisive = some result) (unread : List Arrival) :
    await .socketIo apiKey none (before ++ decisive :: unread) =
      ⟨before.filterMap (answer? apiKey), unread, some result⟩ := by
  induction before with
  | nil =>
      rw [List.nil_append, await_cons, respond_eq, hdecisive]
      rfl
  | cons a before ih =>
      obtain ⟨ha, hrest⟩ := List.forall_mem_cons.mp hbefore
      rw [List.cons_append, await_cons, respond_eq, ha, ih hrest]
      cases hanswer : answer? apiKey a <;> simp [hanswer]

/-- A connection that ends decides the result at its end, if nothing did before. -/
theorem exists_verdict_ending (reason : Option String) :
    ∃ error, verdict? (.ending reason) = some (.error (.transport error)) := by
  cases reason with
  | none => exact ⟨_, rfl⟩
  | some reason => exact ⟨_, rfl⟩

/-- **The first verdict decides.**  Whatever the server sends over Socket.IO until the connection
ends, the handshake comes to a result.  It is the verdict of the first arrival that has one: of
the acknowledgement, of a refusal or of a closing, of what cannot be read, or of the end of the
connection if there is nothing of that kind.  Until then the handshake has sent the key for each
opening and a pong for each ping, in order, and nothing else; and all that comes after the
decisive arrival is left to be read.  The key is sent as the digits `40` and a text of the object
that holds it under `apiKey`. -/
theorem first_verdict_decides (apiKey : String) (packets : List (List UInt8))
    (reason : Option String) :
    (∃ body, keyText apiKey = "40" ++ body ∧
      (Json.Tree.ofText? body).bind Json.Value.ofTree? =
        some (.object [("apiKey", .string apiKey)])) ∧
    ∃ before decisive unread result,
      Arrival.stream packets reason = before ++ decisive :: unread ∧
      (∀ a ∈ before, verdict? a = none) ∧ verdict? decisive = some result ∧
      start .socketIo apiKey none (Arrival.stream packets reason) =
        { sent := before.filterMap (answer? apiKey), rest := unread, result := some result } := by
  obtain ⟨error, hending⟩ := exists_verdict_ending reason
  obtain ⟨result, hresult⟩ : ∃ result,
      (Arrival.stream packets reason).findSome? verdict? = some result := by
    rw [← Option.isSome_iff_exists, List.findSome?_isSome_iff]
    exact ⟨.ending reason, List.mem_append_right _ List.mem_cons_self, by rw [hending]; rfl⟩
  obtain ⟨before, decisive, unread, hsplit, hdecisive, hbefore⟩ :=
    List.findSome?_eq_some_iff.mp hresult
  refine ⟨exists_body_keyText apiKey, before, decisive, unread, result, hsplit, hbefore, hdecisive,
    ?_⟩
  rw [hsplit]
  exact await_of_first hbefore hdecisive unread

/-- A ping and the opening are answered, an event is not, and the message behind the acknowledgement
is left to be read. -/
example : start .socketIo "key" none
      [.message [0x32], .message [0x36], .message [0x30], .message [0x34, 0x30], .message [0x31]] =
    ⟨["3", "40\x7b\"apiKey\":\"key\"\x7d"], [.message [0x31]], some (.ok ())⟩ := rfl

end DiceTable.Handshake
