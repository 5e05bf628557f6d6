import DiceTable.Proofs.Client.Slots
import DiceTable.Proofs.Session.Attempt
import DiceTable.Proofs.Wire.Framings
import Mathlib.Data.List.Count
import Mathlib.Data.List.Nodup

/-!
# Where the connections go

A connection comes to a client in a report that its attempt is connected.  It leaves by being
closed, or because it is reported gone while it is live.  In between it is in the slot for the
connection, and there is no other place for it.

The slot is never looked at before it is filled, so that nothing is lost there is a fact about
runs: `Reachable.balance` is the balance of one turn, in which `Coherent` says that the slot was
empty, and `Reachable.balance_run` adds the turns up.

Only the turn that fills the slot sends a message (`Handled.sending_cases`), and its text names the
table and nothing else (`decode_subscriptionText`).  From then on the attempt is `Machine.Resolved`,
so that such a turn comes once for each attempt: this is what `Subscribed` keeps of the messages
sent so far.

Connections are told apart by their numbers, which a run may repeat.  The balance counts them, and
what is said of one connection supposes that no number is delivered twice.
-/

namespace DiceTable.Client

variable {config : Config} {m : Moment} {input : Input} {c c' : Client} {effects : List Effect}
  {attempt : Attempt} {link : LinkId} {table : TableId}

/-! ## Notes on a run -/

section Collect

variable {α : Type}

/-- What is noted of each turn of a run, in order. -/
def collect (config : Config) (note : Client → Turn → List α) : Client → List Turn → List α
  | _, [] => []
  | c, t :: turns => note c t ++ collect config note (c.next config t) turns

theorem collect_append (note : Client → Turn → List α) (c : Client) (turns later : List Turn) :
    collect config note c (turns ++ later) =
      collect config note c turns ++ collect config note (c.after config turns) later := by
  induction turns generalizing c with
  | nil => rfl
  | cons t turns ih => simp [collect, ih]

theorem mem_collect {note : Client → Turn → List α} {turns : List Turn} {x : α}
    (h : x ∈ collect config note c turns) :
    ∃ past t future, turns = past ++ t :: future ∧ x ∈ note (c.after config past) t := by
  induction turns generalizing c with
  | nil => simp [collect] at h
  | cons t turns ih =>
      rcases List.mem_append.mp h with hnow | hlater
      · exact ⟨[], t, turns, rfl, hnow⟩
      · obtain ⟨past, u, future, rfl, hu⟩ := ih hlater
        exact ⟨t :: past, u, future, rfl, hu⟩

end Collect

/-! ## The balance -/

/-- The connection that is delivered to the client. -/
def received (c : Client) (t : Turn) : List LinkId :=
  match t.input with
  | .report (.connected _ link) => if c.running then [link] else []
  | _ => []

/-- The connection that is reported gone while it is live. -/
def lost (c : Client) (t : Turn) : List LinkId :=
  match t.input with
  | .report (.closed attempt _) => if c.machine.isLive attempt then c.link.toList else []
  | _ => []

/-- The connection that an effect closes. -/
@[simp] def closing? : Effect → Option LinkId
  | .close link => some link
  | _ => none

/-- The connections that are closed, in order. -/
def closes (effects : List Effect) : List LinkId := effects.filterMap closing?

@[simp] theorem closes_nil : closes [] = [] := rfl

@[simp] theorem closes_cons (effect : Effect) (effects : List Effect) :
    closes (effect :: effects) = (closing? effect).toList ++ closes effects := by
  rw [closes, List.filterMap_cons]
  cases closing? effect <;> rfl

@[simp] theorem closes_append (effects later : List Effect) :
    closes (effects ++ later) = closes effects ++ closes later :=
  List.filterMap_append

@[simp] theorem closes_resolve (c : Client) (attempt : Attempt) (reply : Reply) :
    closes (c.resolve attempt reply).2 = [] :=
  filterMap_resolve (fun _ _ => rfl) c attempt reply

@[simp] theorem closes_releaseTransport (c : Client) :
    closes c.releaseTransport.2 = c.link.toList := by
  rw [closes, filterMap_releaseTransport (fun _ => rfl) fun _ => rfl]
  cases c.link <;> rfl

@[simp] theorem closes_teardown (c : Client) : closes c.teardown.2 = c.link.toList := by
  rw [closes, filterMap_teardown (fun _ _ => rfl) (fun _ => rfl) fun _ => rfl]
  cases c.link <;> rfl

/-- What comes in, and what was held before, is closed, lost or still held. -/
theorem Reachable.balance (h : Reachable config c) (t : Turn) :
    (closes (c.effectsOf config t) ++ c.lost t ++ (c.next config t).link.toList).Perm
      (c.received t ++ c.link.toList) := by
  obtain ⟨m, input⟩ := t
  have hhandled := handled_next config c ⟨m, input⟩
  generalize c.effectsOf config ⟨m, input⟩ = effects at hhandled ⊢
  generalize c.next config ⟨m, input⟩ = c' at hhandled ⊢
  cases hhandled with
  | refused hstopped =>
      have hreceived : c.received ⟨m, input⟩ = [] := by
        unfold received
        split <;> simp [hstopped]
      have hlost : c.lost ⟨m, input⟩ = [] := by
        unfold Client.lost
        split
        · rw [if_neg]
          intro hlive
          simp [h.running_of_isLive hlive] at hstopped
        · rfl
      rw [closes, filterMap_refuse (fun _ _ => rfl), hreceived, hlost]
      exact .refl _
  | disconnected =>
      have hlink : c.released.link = none := rfl
      simp [hlink, status, received, Client.lost]
  | shutdown =>
      have hlink : c.teardown.1.link = none := rfl
      simp [hlink, received, Client.lost]
  | abandoned =>
      have hlink : c.teardown.1.link = none := rfl
      simp [hlink, received, Client.lost]
  | linkLate hrunning => simp [hrunning, received, Client.lost]
  | linked hrunning hstate =>
      have hempty : c.link = none := h.coherent.link_eq_none (by rw [hstate]; rfl)
      simp [hempty, hrunning, status, notify, received, Client.lost, linked]
  | failed => simp [status, notify, received, Client.lost, failed]
  | timedOut => cases c.dialer <;> simp [status, notify, received, Client.lost, failed]
  | lossLate _ hlate => simp [hlate, received, Client.lost]
  | lost _ hstate =>
      have hlive : c.machine.isLive c.machine.attempt = true := by
        simp [Machine.isLive, hstate, SessionState.isConnected]
      simp [hlive, status, received, Client.lost, unlinked]
  | delivered =>
      rw [closes, filterMap_deliveryEffects fun _ => rfl]
      exact .refl _
  | _ => exact .refl _

/-- The balance of a run, whatever is held at its start. -/
theorem Reachable.balance_run (h : Reachable config c) (turns : List Turn) :
    (closes (c.effects config turns) ++ collect config lost c turns ++
        (c.after config turns).link.toList).Perm
      (collect config received c turns ++ c.link.toList) := by
  induction turns generalizing c with
  | nil => exact .refl _
  | cons t turns ih =>
      have hnext : Reachable config (c.next config t) := h.after [t]
      have hfirst := h.balance t
      have hrest := ih hnext
      rw [List.perm_iff_count] at hfirst hrest ⊢
      intro link
      have hnow := hfirst link
      have hlater := hrest link
      simp only [effects_cons, closes_append, collect, after_cons, List.count_append]
        at hnow hlater ⊢
      omega

/-! ## Messages -/

/-- A message, with the attempt that is current when it is sent. -/
structure Message where
  attempt : Attempt
  link : LinkId
  text : String
  deriving DecidableEq, Repr

/-- The message that an effect sends, and on which connection. -/
@[simp] def sending? : Effect → Option (LinkId × String)
  | .send link text => some (link, text)
  | _ => none

/-- The messages that are sent. -/
def messages (config : Config) (c : Client) (t : Turn) : List Message :=
  ((c.effectsOf config t).filterMap sending?).map fun sent =>
    ⟨(c.next config t).machine.attempt, sent.1, sent.2⟩

/-- The text that subscribes to a table: in a packet, or as an object. -/
def subscriptionText : WireFormat → TableId → String
  | .socketIo, table =>
    "42" ++ (Json.Value.array
      [.string "subscribe:table", .object [("tableId", .string table)]]).compact
  | .jsonFrames, table =>
    (Json.Value.object [("event", .string "subscribe:table"),
      ("data", .object [("tableId", .string table)])]).compact

theorem event_subscribe (format : WireFormat) (table : TableId) :
    format.event (.subscribe table) = subscriptionText format table := by
  cases format <;> rfl

/-- The text is read as a subscription to the table. -/
theorem decode_subscriptionText (format : WireFormat) (table : TableId) :
    format.decode (Text.Utf8.encode (subscriptionText format table).toList) =
      .ok (.event ⟨"subscribe:table", .object [("tableId", .string table)]⟩) := by
  rw [← event_subscribe, OutboundEvent.decode_event]
  rfl

/-- The message that subscribes to a table. -/
def subscription (config : Config) (attempt : Attempt) (link : LinkId) (table : TableId) :
    Message :=
  ⟨attempt, link, subscriptionText config.wireFormat table⟩

/-- A turn that sends nothing connects nothing, and a turn that connects sends one message. -/
theorem Handled.sending_cases (hhandled : Handled config m c input c' effects) :
    (effects.filterMap sending? = [] ∧ ∀ table, c'.machine.state = .connected table →
        c'.machine = c.machine ∧ c'.link = c.link) ∨
      ∃ link table, input = .report (.connected c.machine.attempt link) ∧ c.running = true ∧
        c.machine.state = .connecting ∧ c'.machine = c.machine.settle (.connected table) ∧
        c'.link = some link ∧
        effects.filterMap sending? = [(link, subscriptionText config.wireFormat table)] := by
  have hreplies := filterMap_resolve (f := sending?) fun _ _ => rfl
  have hcancelled := filterMap_teardown (f := sending?) (fun _ _ => rfl) (fun _ => rfl) fun _ => rfl
  have hinactive {state : SessionState} (h : state.isActive = false) (table : TableId) :
      state ≠ .connected table := by
    intro hstate
    simp [hstate, SessionState.isActive] at h
  cases hhandled with
  | @linked link credentials hrunning hstate =>
      refine .inr ⟨link, credentials.table, rfl, hrunning, hstate, resolve_machine, resolve_link,
        ?_⟩
      rw [List.filterMap_append, hreplies, ← event_subscribe]
      rfl
  | refused => exact .inl ⟨filterMap_refuse (fun _ _ => rfl) input, fun _ _ => ⟨rfl, rfl⟩⟩
  | connectStarted =>
      refine .inl ⟨rfl, fun table h => ?_⟩
      simp [dialing] at h
  | disconnected =>
      left
      have hreleased := filterMap_releaseTransport (f := sending?) (fun _ => rfl) (fun _ => rfl) c
      constructor
      · simp only [List.filterMap_append, hreplies, hreleased]
        cases c.link <;> rfl
      · intro table h
        simp [released] at h
  | shutdown =>
      left
      constructor
      · rw [List.filterMap_cons_none rfl, hcancelled]
        cases c.link <;> rfl
      · intro table h
        exact absurd h (hinactive c.machine.isActive_disconnect table)
  | abandoned =>
      left
      constructor
      · rw [hcancelled]
        cases c.link <;> rfl
      · intro table h
        exact absurd h (hinactive c.machine.isActive_disconnect table)
  | failed =>
      refine .inl ⟨?_, fun table h => ?_⟩
      · simp only [List.filterMap_append, hreplies]
        rfl
      · simp [Client.failed] at h
  | timedOut =>
      refine .inl ⟨?_, fun table h => ?_⟩
      · simp only [List.filterMap_append, hreplies]
        cases c.dialer <;> rfl
      · simp [Client.failed] at h
  | lost =>
      refine .inl ⟨rfl, fun table h => ?_⟩
      simp [unlinked] at h
  | delivered => exact .inl ⟨filterMap_deliveryEffects (fun _ => rfl) _ _ _, fun _ _ => ⟨rfl, rfl⟩⟩
  | _ => exact .inl ⟨rfl, fun _ _ => ⟨rfl, rfl⟩⟩

/-- The message of a turn that sends one. -/
theorem mem_messages {t : Turn} {sent : Message} (h : sent ∈ messages config c t) :
    ∃ link table, t.input = .report (.connected c.machine.attempt link) ∧ c.running = true ∧
      c.machine.state = .connecting ∧ (c.next config t).machine.state = .connected table ∧
      (c.next config t).machine.attempt = c.machine.attempt ∧
      sent = subscription config c.machine.attempt link table := by
  rcases (handled_next config c t).sending_cases with
    ⟨hnone, _⟩ | ⟨link, table, hinput, hrunning, hstate, hmachine, _, hsent⟩
  · simp [messages, hnone] at h
  · refine ⟨link, table, hinput, hrunning, hstate, by simp [hmachine], by simp [hmachine], ?_⟩
    simpa [messages, hsent, hmachine, subscription] using h

/-- What the messages of a run have to do with the client it leads to. -/
structure Subscribed (config : Config) (c : Client) (sent : List Message) : Prop where
  resolved : ∀ s ∈ sent, Machine.Resolved s.attempt c.machine
  nodup : (sent.map Message.attempt).Nodup
  current : ∀ table, c.machine.state = .connected table →
    ∃ link, c.link = some link ∧ subscription config c.machine.attempt link table ∈ sent

theorem Subscribed.next {sent : List Message} (h : Subscribed config c sent) (t : Turn) :
    Subscribed config (c.next config t) (sent ++ messages config c t) := by
  have hkept : ∀ s ∈ sent, Machine.Resolved s.attempt (c.next config t).machine := fun s hs =>
    machine_next (P := Machine.Resolved s.attempt) (fun _ _ _ => Machine.Resolved.move)
      (h.resolved s hs) t
  rcases (handled_next config c t).sending_cases with
    ⟨hnone, hsame⟩ | ⟨link, table, _, _, hstate, hmachine, hlink, hsent⟩
  · rw [messages, hnone, List.map_nil, List.append_nil]
    refine ⟨hkept, h.nodup, fun table htable => ?_⟩
    obtain ⟨hmachine, hlink⟩ := hsame table htable
    rw [hmachine] at htable ⊢
    rw [hlink]
    exact h.current table htable
  · have hmessages : messages config c t = [subscription config c.machine.attempt link table] := by
      simp [messages, hsent, hmachine, subscription]
    rw [hmessages]
    refine ⟨?_, ?_, ?_⟩
    · intro s hs
      rcases List.mem_append.mp hs with hs | hs
      · exact hkept s hs
      · rw [List.mem_singleton.mp hs, hmachine]
        exact .inr ⟨rfl, by simp⟩
    · -- The attempt is in flight, so it is none of those that have sent something.
      have hnew : c.machine.attempt ∉ sent.map Message.attempt := by
        intro hmem
        obtain ⟨s, hs, hattempt⟩ := List.mem_map.mp hmem
        rcases h.resolved s hs with hpast | ⟨_, hsettled⟩
        · exact absurd hattempt (Nat.ne_of_lt hpast)
        · exact hsettled hstate
      rw [List.map_append, List.map_singleton, ← List.concat_eq_append]
      exact h.nodup.concat hnew
    · intro table' htable
      rw [hmachine, Machine.settle_state, SessionState.connected.injEq] at htable
      subst htable
      exact ⟨link, hlink, by simp [hmachine]⟩

theorem subscribed_after (config : Config) (turns : List Turn) :
    Subscribed config ((new config).after config turns)
      (collect config (messages config) (new config) turns) := by
  induction turns using List.reverseRecOn with
  | nil => exact ⟨by simp [collect], .nil, by simp [after, new, Machine.new]⟩
  | append_singleton turns t ih =>
      have hlast : collect config (messages config) ((new config).after config turns) [t] =
          messages config ((new config).after config turns) t := List.append_nil _
      rw [after_append, collect_append, hlast]
      exact ih.next t

/-- An attempt that sent a message sent no other. -/
theorem Subscribed.filter_eq {sent : List Message} (h : Subscribed config c sent) {s : Message}
    (hs : s ∈ sent) : sent.filter (·.attempt == s.attempt) = [s] := by
  obtain ⟨before, later, rfl⟩ := List.append_of_mem hs
  have hnodup := h.nodup
  rw [List.map_append, List.map_cons, List.nodup_middle, List.nodup_cons, ← List.map_append]
    at hnodup
  have hothers : ∀ other ∈ before ++ later, other.attempt ≠ s.attempt := by
    intro other hother hattempt
    exact hnodup.1 (List.mem_map.mpr ⟨other, hother, hattempt⟩)
  have hbefore : before.filter (·.attempt == s.attempt) = [] := by
    rw [List.filter_eq_nil_iff]
    intro other hother
    simpa using hothers other (List.mem_append_left later hother)
  have hlater : later.filter (·.attempt == s.attempt) = [] := by
    rw [List.filter_eq_nil_iff]
    intro other hother
    simpa using hothers other (List.mem_append_right before hother)
  rw [List.filter_append, List.filter_cons_of_pos (by simp), hbefore, hlater, List.nil_append]

/-! ## Connections that come too late -/

/-- The client closes a connection whose attempt is not in flight, and that is all. -/
theorem Handled.of_late_link (hrunning : c.running = true)
    (hlate : c.machine.isInFlight attempt = false)
    (hhandled : Handled config m c (.report (.connected attempt link)) c' effects) :
    c' = c ∧ effects = [.close link] := by
  cases hhandled with
  | refused hstopped => simp [hrunning] at hstopped
  | linkLate => exact ⟨rfl, rfl⟩
  | linked _ hstate =>
      have hflight := Machine.isInFlight_iff.mpr ⟨rfl, hstate⟩
      simp [hflight] at hlate

theorem mem_received {t : Turn} (hrunning : c.running = true)
    (hinput : t.input = .report (.connected attempt link)) : link ∈ c.received t := by
  simp [received, hinput, hrunning]

/-- A connection that is delivered once is not delivered before. -/
theorem not_mem_of_delivered {turns past future : List Turn} {t : Turn}
    (hnodup : (collect config received c turns).Nodup) (hturns : turns = past ++ t :: future)
    (hlink : link ∈ (c.after config past).received t) :
    link ∉ collect config received c past := by
  rw [hturns, collect_append, collect] at hnodup
  intro hearlier
  exact (List.disjoint_of_nodup_append hnodup) hearlier (List.mem_append_left _ hlink)

/-- The turn in which a connection is delivered once is the only one. -/
theorem past_eq_of_delivered {turns past future past' future' : List Turn} {t t' : Turn}
    (hnodup : (collect config received c turns).Nodup)
    (hturns : turns = past ++ t :: future) (hlink : link ∈ (c.after config past).received t)
    (hturns' : turns = past' ++ t' :: future')
    (hlink' : link ∈ (c.after config past').received t') : past = past' ∧ t = t' := by
  have hfirst {past middle : List Turn} {t : Turn}
      (hlink : link ∈ (c.after config past).received t) :
      link ∈ collect config received c (past ++ t :: middle) := by
    rw [collect_append, collect]
    exact List.mem_append_right _ (List.mem_append_left _ hlink)
  rcases List.append_eq_append_iff.mp (hturns.symm.trans hturns') with
    ⟨middle, rfl, hrest⟩ | ⟨middle, rfl, hrest⟩
  · cases middle with
    | nil => exact ⟨(List.append_nil past).symm, (List.cons.inj hrest).1⟩
    | cons u middle =>
        obtain rfl := (List.cons.inj hrest).1
        exact absurd (hfirst hlink) (not_mem_of_delivered hnodup hturns' hlink')
  · cases middle with
    | nil => exact ⟨List.append_nil past', (List.cons.inj hrest).1.symm⟩
    | cons u middle =>
        obtain rfl := (List.cons.inj hrest).1
        exact absurd (hfirst hlink') (not_mem_of_delivered hnodup hturns hlink)

/-! ## The main statement -/

section Run

variable {turns past future : List Turn} {t : Turn}

/-- The three ways that a connection may have gone exclude each other. -/
theorem accounted_of_nodup {closed gone delivered : List LinkId} {held : Option LinkId}
    (hbalance : (closed ++ gone ++ held.toList).Perm delivered) (hnodup : delivered.Nodup) :
    closed.Nodup ∧ ∀ link, held = some link ↔ link ∈ delivered ∧ link ∉ closed ∧ link ∉ gone := by
  have hparts := hbalance.nodup_iff.mpr hnodup
  have hout := List.disjoint_of_nodup_append hparts
  refine ⟨hparts.of_append_left.of_append_left, fun link => ?_⟩
  rw [← hbalance.mem_iff]
  constructor
  · intro hheld
    have hslot : link ∈ held.toList := Option.mem_toList.mpr hheld
    refine ⟨List.mem_append_right _ hslot, fun h => ?_, fun h => ?_⟩
    · exact hout (List.mem_append_left _ h) hslot
    · exact hout (List.mem_append_right _ h) hslot
  · rintro ⟨hmem, hclosed, hgone⟩
    simpa [hclosed, hgone] using hmem

theorem Reachable.link_eq_none_of_stopped (h : Reachable config c) (hstopped : c.running = false) :
    c.link = none := by
  apply h.coherent.link_eq_none
  have hinactive := h.isActive_of_stopped hstopped
  cases hstate : c.machine.state <;> simp_all [SessionState.isActive, SessionState.isConnected]

/-- No message is sent on a connection that comes too late, neither before nor after. -/
theorem unsent_of_late_link (hnodup : (collect config received c turns).Nodup)
    (hturns : turns = past ++ t :: future) (hinput : t.input = .report (.connected attempt link))
    (hrunning : (c.after config past).running = true)
    (hlate : (c.after config past).machine.isInFlight attempt = false) :
    ∀ s ∈ collect config (messages config) c turns, s.link ≠ link := by
  rintro s hs rfl
  obtain ⟨past', t', future', hturns', hs'⟩ := mem_collect hs
  obtain ⟨link, table, hinput', hrunning', hstate, _, _, rfl⟩ := mem_messages hs'
  obtain ⟨rfl, rfl⟩ := past_eq_of_delivered hnodup hturns (mem_received hrunning hinput) hturns'
    (mem_received hrunning' hinput')
  -- One turn cannot find the attempt both in flight and not.
  obtain ⟨rfl, _⟩ := Report.connected.inj (Input.report.inj (hinput.symm.trans hinput'))
  have hflight := Machine.isInFlight_iff.mpr ⟨rfl, hstate⟩
  rw [hflight] at hlate
  exact Bool.noConfusion hlate

/-- An attempt that has sent a message was connected right afterwards. -/
theorem isLive_of_sent {s : Message} (hs : s ∈ collect config (messages config) c turns) :
    ∃ past future, turns = past ++ future ∧
      (c.after config past).machine.isLive s.attempt = true := by
  obtain ⟨past, t, future, hturns, hs'⟩ := mem_collect hs
  obtain ⟨link, table, _, _, _, hstate, hcurrent, rfl⟩ := mem_messages hs'
  refine ⟨past ++ [t], future, by rw [hturns, List.append_assoc, List.singleton_append], ?_⟩
  have hnext : (c.after config (past ++ [t])) = (c.after config past).next config t :=
    after_append config c past [t]
  rw [hnext, Machine.isLive, hcurrent, hstate]
  simp [subscription, SessionState.isConnected]

/-- The connection of an attempt is the one that was delivered for it, and the attempt has
subscribed on it. -/
theorem subscribed_of_connected (hturns : turns = past ++ future)
    (hstate : ((new config).after config past).machine.state = .connected table) :
    ∃ link, ((new config).after config past).link = some link ∧
      (∃ t ∈ past, t.input =
        .report (.connected ((new config).after config past).machine.attempt link)) ∧
      subscription config ((new config).after config past).machine.attempt link table ∈
        collect config (messages config) (new config) turns := by
  obtain ⟨link, hlink, hmem⟩ := (subscribed_after config past).current table hstate
  refine ⟨link, hlink, ?_, ?_⟩
  · obtain ⟨earlier, t, later, hpast, ht⟩ := mem_collect hmem
    obtain ⟨link', table', hinput, _, _, _, _, heq⟩ := mem_messages ht
    obtain ⟨hattempt, rfl, _⟩ := Message.mk.inj heq
    exact ⟨t, by simp [hpast], hattempt ▸ hinput⟩
  · rw [hturns, collect_append]
    exact List.mem_append_left _ hmem

end Run

/-- **Every connection is accounted for.**  In every run, the connections that were delivered to the
client are those that it closed, those that were reported gone while they were live, and the one in
its slot, each as often as it was delivered.  So when no connection is delivered twice, none is
closed twice, and the slot holds exactly what is neither closed nor gone; and a client that has
stopped holds none.

A connection that is delivered while its attempt is not in flight is closed in the same turn, and
no message is sent on it.  An attempt that becomes connected to a table has sent one message by
the end of the run, on the connection that was delivered for the attempt: its text is the event
`subscribe:table` with an object that holds this table under `tableId`, as the framing writes it,
and is read as such.  An attempt that was never connected has sent none. -/
theorem connections_accounted_for (config : Config) (turns : List Turn) :
    let c := (new config).after config turns
    let delivered := collect config received (new config) turns
    let gone := collect config lost (new config) turns
    let closed := closes ((new config).effects config turns)
    let sent := collect config (messages config) (new config) turns
    ((closed ++ gone ++ c.link.toList).Perm delivered ∧
        (delivered.Nodup → closed.Nodup ∧
          ∀ link, c.link = some link ↔ link ∈ delivered ∧ link ∉ closed ∧ link ∉ gone) ∧
        (c.running = false → c.link = none)) ∧
      (∀ past t future attempt link, turns = past ++ t :: future →
        t.input = .report (.connected attempt link) →
        ((new config).after config past).running = true →
        ((new config).after config past).machine.isInFlight attempt = false →
          ((new config).after config past).effectsOf config t = [.close link] ∧
            (delivered.Nodup → ∀ s ∈ sent, s.link ≠ link)) ∧
      (∀ past future table, turns = past ++ future →
        ((new config).after config past).machine.state = .connected table →
          ∃ link, ((new config).after config past).link = some link ∧
            (∃ t ∈ past, t.input =
              .report (.connected ((new config).after config past).machine.attempt link)) ∧
            sent.filter (·.attempt == ((new config).after config past).machine.attempt) =
              [⟨((new config).after config past).machine.attempt, link,
                subscriptionText config.wireFormat table⟩] ∧
            config.wireFormat.decode
                (Text.Utf8.encode (subscriptionText config.wireFormat table).toList) =
              .ok (.event ⟨"subscribe:table", .object [("tableId", .string table)]⟩)) ∧
      ∀ attempt, (∀ past future, turns = past ++ future →
          ((new config).after config past).machine.isLive attempt = false) →
        sent.filter (·.attempt == attempt) = [] := by
  intro c delivered gone closed sent
  have hnew : Reachable config (new config) := reachable_after config []
  have hbalance : (closed ++ gone ++ c.link.toList).Perm delivered := by
    have hnone : (new config).link.toList = [] := rfl
    have hrun := hnew.balance_run turns
    rwa [hnone, List.append_nil] at hrun
  refine ⟨⟨hbalance, accounted_of_nodup hbalance, (hnew.after turns).link_eq_none_of_stopped⟩,
    ?_, ?_, ?_⟩
  · intro past t future attempt link hturns hinput hrunning hlate
    have hhandled := handled_next config ((new config).after config past) t
    rw [hinput] at hhandled
    refine ⟨(hhandled.of_late_link hrunning hlate).2, fun hnodup => ?_⟩
    exact unsent_of_late_link hnodup hturns hinput hrunning hlate
  · intro past future table hturns hstate
    obtain ⟨link, hlink, hdelivered, hmem⟩ := subscribed_of_connected hturns hstate
    exact ⟨link, hlink, hdelivered, (subscribed_after config turns).filter_eq hmem,
      decode_subscriptionText config.wireFormat table⟩
  · intro attempt hnever
    rw [List.filter_eq_nil_iff]
    intro s hs hattempt
    rw [beq_iff_eq] at hattempt
    obtain ⟨past, future, hturns, hlive⟩ := isLive_of_sent hs
    rw [hattempt, hnever past future hturns] at hlive
    exact Bool.noConfusion hlive

end DiceTable.Client
