import DiceTable.Wire.Listener
import Mathlib.Data.List.Count

/-!
# What the listener passes on

The listener reads a connection until the connection is gone, and reports to the client what it
heard.  It is gone when the server closes or refuses it, when the stream ends or receiving fails,
and when a ping cannot be answered.  Up to there no frame is lost or made up, and no ping goes
unanswered (`loses_and_invents_nothing`).

## Strategy

What an arrival means is said by `hangUp?`, `frame?` and `isPing`.  `listen_heard` is one step of
the listener in these terms, and `listen_append` a run over arrivals that keep the listener going.
Sending may fail at any time, so that the run counts the pings: the listener goes on behind them
with what is left of `faults`.  Some arrival stops it, and the first of them cuts the arrivals in
two (`exists_last`).  A silent message leaves the run as it is, so that it may as well not arrive
(`listen_filter_not_isSilent`).
-/

namespace DiceTable

/-- What a message says, if it can be read. -/
def Arrival.content? (format : WireFormat) : Arrival → Option Incoming
  | .message octets => (format.decode octets).toOption
  | _ => none

namespace Listener

/-- Why the connection is gone with this arrival, if it is. -/
def hangUp? (format : WireFormat) : Arrival → Option String
  | .ended => some "closed by server"
  | .failed reason => some (TransportError.receiveFailed reason).message
  | .message octets =>
    match format.decode octets with
    | .ok .closed => some "closed by server"
    | .ok (.refused reason) => some ("refused by server: " ++ reason)
    | _ => none

/-- The frame of an event. -/
def frame? (format : WireFormat) (a : Arrival) : Option Frame :=
  match a.content? format with
  | some (.event frame) => some frame
  | _ => none

/-- Whether the arrival is a ping. -/
def isPing (format : WireFormat) (a : Arrival) : Bool := a.content? format = some .ping

/-- The number of pings. -/
def pings (format : WireFormat) (arrivals : List Arrival) : Nat := arrivals.countP (isPing format)

/-- Whether the arrival is a message that cannot be read, or that says nothing to the listener. -/
def isSilent (format : WireFormat) : Arrival → Bool
  | .message octets =>
    match format.decode octets with
    | .error _ => true
    | .ok .opened => true
    | .ok .connected => true
    | .ok .ignored => true
    | _ => false
  | _ => false

variable {format : WireFormat} {faults : Nat → Option TransportError} {a : Arrival}

/-! ## One arrival -/

theorem content?_message_eq_some_iff {octets : List UInt8} {incoming : Incoming} :
    (Arrival.message octets).content? format = some incoming ↔
      format.decode octets = .ok incoming := by
  rw [Arrival.content?]
  cases format.decode octets <;> simp [Except.toOption]

/-- Frames know no pings. -/
theorem isPing_jsonFrames (a : Arrival) : isPing .jsonFrames a = false := by
  cases a with
  | message octets =>
      rw [isPing, Arrival.content?, WireFormat.decode]
      cases Frame.ofOctets octets <;> rfl
  | _ => rfl

/-- The listener goes on behind an arrival that does not end the connection.  It has passed its
frame on, or answered it. -/
theorem listen_heard (ha : hangUp? format a = none)
    (hping : isPing format a = true → faults 0 = none) (rest : List Arrival) :
    let p := listen format (fun n => faults (n + pings format [a])) rest
    listen format faults (a :: rest) =
      { p with
        sent := List.replicate (pings format [a]) "3" ++ p.sent
        frames := (frame? format a).toList ++ p.frames } := by
  cases a with
  | ended => cases ha
  | failed reason => cases ha
  | message octets =>
      cases hdecode : format.decode octets with
      | error e =>
          simp [listen, react, pings, isPing, frame?, Arrival.content?, hdecode, Except.toOption]
      | ok incoming =>
          have hcontent := content?_message_eq_some_iff.mpr hdecode
          cases incoming with
          | ping =>
              have hisPing : isPing format (.message octets) = true := by simp [isPing, hcontent]
              cases format with
              | jsonFrames => exact absurd hisPing (by simp [isPing_jsonFrames])
              | socketIo =>
                  simp [listen, react, WireFormat.pong, pings, frame?, hcontent, hdecode, hisPing,
                    hping hisPing]
          | closed => simp [hangUp?, hdecode] at ha
          | refused reason => simp [hangUp?, hdecode] at ha
          | event frame => simp [listen, react, pings, isPing, frame?, hcontent, hdecode]
          | opened => simp [listen, react, pings, isPing, frame?, hcontent, hdecode]
          | connected => simp [listen, react, pings, isPing, frame?, hcontent, hdecode]
          | ignored => simp [listen, react, pings, isPing, frame?, hcontent, hdecode]

/-- The listener stops at an arrival that ends the connection. -/
theorem listen_hangUp {reason : String} (ha : hangUp? format a = some reason)
    (rest : List Arrival) :
    listen format faults (a :: rest) = ⟨[], [], rest, some reason⟩ := by
  cases a with
  | ended =>
      cases ha
      rfl
  | failed why =>
      cases ha
      rfl
  | message octets =>
      rw [hangUp?] at ha
      split at ha
      next hdecode =>
        cases ha
        simp [listen, react, hdecode, closedByServer]
      next hdecode =>
        cases ha
        simp [listen, react, hdecode]
      next => cases ha

/-- The listener stops at a ping that it cannot answer. -/
theorem listen_unanswered {e : TransportError} (ha : isPing format a = true)
    (hfault : faults 0 = some e) (rest : List Arrival) :
    listen format faults (a :: rest) = ⟨[], [], rest, some e.message⟩ := by
  cases format with
  | jsonFrames => exact absurd ha (by simp [isPing_jsonFrames])
  | socketIo =>
      have hcontent := of_decide_eq_true ha
      cases a with
      | message octets =>
          have hdecode := content?_message_eq_some_iff.mp hcontent
          simp [listen, react, hdecode, WireFormat.pong, hfault]
      | _ => cases hcontent

/-! ## All arrivals -/

theorem pings_cons (a : Arrival) (heard : List Arrival) :
    pings format (a :: heard) = pings format heard + pings format [a] := by
  rw [← List.singleton_append, pings, List.countP_append, Nat.add_comm]
  rfl

/-- The pings among some arrivals can be answered if the first one can, and then the others. -/
theorem forall_pings_cons {heard : List Arrival} :
    (∀ n < pings format (a :: heard), faults n = none) ↔
      (isPing format a = true → faults 0 = none) ∧
        ∀ n < pings format heard, faults (n + pings format [a]) = none := by
  rw [pings_cons]
  cases hping : isPing format a with
  | false =>
      have hzero : pings format [a] = 0 := by simp [pings, hping]
      simp [hzero]
  | true =>
      have hone : pings format [a] = 1 := by simp [pings, hping]
      rw [hone, Nat.forall_lt_succ_left']
      simp

/-- The listener goes on behind arrivals that do not end the connection, as long as it can answer
the pings among them. -/
theorem listen_append {heard : List Arrival} (hheard : ∀ a ∈ heard, hangUp? format a = none)
    (hpings : ∀ n < pings format heard, faults n = none) (rest : List Arrival) :
    let p := listen format (fun n => faults (n + pings format heard)) rest
    listen format faults (heard ++ rest) =
      { p with
        sent := List.replicate (pings format heard) "3" ++ p.sent
        frames := heard.filterMap (frame? format) ++ p.frames } := by
  induction heard generalizing faults with
  | nil => rfl
  | cons a heard ih =>
      obtain ⟨ha, hrest⟩ := List.forall_mem_cons.mp hheard
      have hframes : (a :: heard).filterMap (frame? format) =
          (frame? format a).toList ++ heard.filterMap (frame? format) := by
        rw [List.filterMap_cons]
        cases frame? format a <;> rfl
      have hpongs : List.replicate (pings format (a :: heard)) "3" =
          List.replicate (pings format [a]) "3" ++ List.replicate (pings format heard) "3" := by
        rw [pings_cons, List.replicate_append_replicate, Nat.add_comm]
      obtain ⟨hping, hlater⟩ := forall_pings_cons.mp hpings
      rw [List.cons_append, listen_heard ha hping, ih hrest hlater, hframes, hpongs, pings_cons]
      simp only [Nat.add_assoc, List.append_assoc]

/-- The arrival that stops the listener, and what comes before it. -/
theorem exists_last {arrivals : List Arrival} (h : ∃ a ∈ arrivals, (hangUp? format a).isSome) :
    ∃ heard last unread reason, arrivals = heard ++ last :: unread ∧
      (∀ a ∈ heard, hangUp? format a = none) ∧ (∀ n < pings format heard, faults n = none) ∧
      (hangUp? format last = some reason ∨ isPing format last = true ∧
        ∃ e, faults (pings format heard) = some e ∧ reason = e.message) := by
  induction arrivals generalizing faults with
  | nil =>
      obtain ⟨a, ha, -⟩ := h
      cases ha
  | cons a arrivals ih =>
      cases hend : hangUp? format a with
      | some reason =>
          exact ⟨[], a, arrivals, reason, rfl, by simp, by simp [pings], .inl hend⟩
      | none =>
          have hrest : ∃ a ∈ arrivals, (hangUp? format a).isSome := by
            obtain ⟨b, hb, hsome⟩ := h
            rcases List.mem_cons.mp hb with rfl | hb
            · simp [hend] at hsome
            · exact ⟨b, hb, hsome⟩
          by_cases hping : isPing format a = true → faults 0 = none
          · obtain ⟨heard, last, unread, reason, rfl, hheard, hpings, hlast⟩ :=
              @ih (fun n => faults (n + pings format [a])) hrest
            refine ⟨a :: heard, last, unread, reason, rfl, List.forall_mem_cons.mpr ⟨hend, hheard⟩,
              forall_pings_cons.mpr ⟨hping, hpings⟩, ?_⟩
            rwa [pings_cons]
          · obtain ⟨hping, hfault⟩ := Classical.not_imp.mp hping
            obtain ⟨e, he⟩ := Option.ne_none_iff_exists'.mp hfault
            exact ⟨[], a, arrivals, e.message, rfl, by simp, by simp [pings],
              .inr ⟨hping, e, he, rfl⟩⟩

/-! ## Silent messages -/

/-- A silent message is passed over. -/
theorem listen_silent (ha : isSilent format a = true) (rest : List Arrival) :
    listen format faults (a :: rest) = listen format faults rest := by
  cases a with
  | message octets =>
      have hskip : react format octets = .skip := by
        rw [isSilent] at ha
        rw [react]
        split at ha <;> simp_all
      rw [listen, hskip]
  | _ => cases ha

/-- The listener sends and passes on the same, and stops for the same reason, if the silent messages
never arrive. -/
theorem listen_filter_not_isSilent (arrivals : List Arrival) :
    let p := listen format faults arrivals
    let q := listen format faults (arrivals.filter fun a => !isSilent format a)
    p.sent = q.sent ∧ p.frames = q.frames ∧ p.stopped = q.stopped := by
  induction arrivals generalizing faults with
  | nil => exact ⟨rfl, rfl, rfl⟩
  | cons a arrivals ih =>
      cases hsilent : isSilent format a with
      | true =>
          rw [listen_silent hsilent, List.filter_cons_of_neg (by simp [hsilent])]
          exact ih
      | false =>
          rw [List.filter_cons_of_pos (by simp [hsilent])]
          cases hend : hangUp? format a with
          | some reason =>
              rw [listen_hangUp hend, listen_hangUp hend]
              exact ⟨rfl, rfl, rfl⟩
          | none =>
              by_cases hping : isPing format a = true → faults 0 = none
              · obtain ⟨hsent, hframes, hstopped⟩ :=
                  @ih (fun n => faults (n + pings format [a]))
                rw [listen_heard hend hping, listen_heard hend hping]
                simp [hsent, hframes, hstopped]
              · obtain ⟨hping, hfault⟩ := Classical.not_imp.mp hping
                obtain ⟨e, he⟩ := Option.ne_none_iff_exists'.mp hfault
                rw [listen_unanswered hping he, listen_unanswered hping he]
                exact ⟨rfl, rfl, rfl⟩

/-! ## The whole connection -/

/-- What a listener reports over a connection that ends.  The arrivals are cut at the first one that
ends the connection or is a ping without an answer.  The frames of the events before it are reported
in order and under the attempt's number, then that the connection is gone, and nothing else.  Each
ping before it has one pong, and silent messages make no difference. -/
theorem loses_and_invents_nothing (format : WireFormat) (faults : Nat → Option TransportError)
    (attempt : Attempt) (packets : List (List UInt8)) (reason : Option String) :
    let arrivals := Arrival.stream packets reason
    let p := listen format faults arrivals
    let q := listen format faults (arrivals.filter fun a => !isSilent format a)
    (∃ heard last unread why, arrivals = heard ++ last :: unread ∧
      (∀ a ∈ heard, hangUp? format a = none) ∧ (∀ n < pings format heard, faults n = none) ∧
      (hangUp? format last = some why ∨ isPing format last = true ∧
        ∃ e, faults (pings format heard) = some e ∧ why = e.message) ∧
      p.reports attempt =
        (heard.filterMap (frame? format)).map (.frame attempt) ++ [.closed attempt why] ∧
      p.sent = List.replicate (pings format heard) "3" ∧ p.rest = unread) ∧
    p.reports attempt = q.reports attempt ∧ p.sent = q.sent := by
  intro arrivals p q
  have hends : ∃ a ∈ arrivals, (hangUp? format a).isSome :=
    ⟨.ending reason, by simp [arrivals, Arrival.stream], by cases reason <;> rfl⟩
  obtain ⟨hsent, hframes, hstopped⟩ := @listen_filter_not_isSilent format faults arrivals
  obtain ⟨heard, last, unread, why, harrivals, hheard, hpings, hlast⟩ :=
    @exists_last format faults arrivals hends
  have hstop : listen format (fun n => faults (n + pings format heard)) (last :: unread) =
      ⟨[], [], unread, some why⟩ := by
    rcases hlast with hend | ⟨hping, e, he, rfl⟩
    · exact listen_hangUp hend unread
    · exact listen_unanswered hping (by simpa using he) unread
  have hp : p = ⟨List.replicate (pings format heard) "3", heard.filterMap (frame? format), unread,
      some why⟩ := by
    rw [show p = listen format faults arrivals from rfl, harrivals, listen_append hheard hpings,
      hstop]
    simp
  refine ⟨⟨heard, last, unread, why, harrivals, hheard, hpings, hlast, ?_, ?_, ?_⟩, ?_, hsent⟩
  · simp [hp, Progress.reports]
  · rw [hp]
  · rw [hp]
  · rw [Progress.reports, Progress.reports, hframes, hstopped]

end Listener

end DiceTable
