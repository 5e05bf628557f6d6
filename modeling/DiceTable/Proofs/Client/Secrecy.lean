import DiceTable.Proofs.Client.Stale
import Mathlib.Data.List.Forall2

/-!
# The key of a client

A client keeps the key that its session was made with, shows it to the server when it connects, and
hands it over with every roll.  What it does otherwise does not depend on the key: with another key
in its session it does the same, and ends up as the same client with that other key
(`step_withKey`).

A command to connect is different, since it brings a key of its own, which is looked at: it must not
be empty.  Two keys that are not empty lead to the same, but for the key (`step_connect`).

The two clients have to take the same way through a handler.  The list of all ways (`Handled`) does
not say so, since it is about one client; so the handlers are opened here, each of them once.
-/

namespace DiceTable

/-! ## Another key -/

/-- The credentials with another key. -/
def Credentials.withKey (c : Credentials) (key : String) : Credentials := { c with apiKey := key }

/-- The session with another key. -/
def Machine.withKey (m : Machine) (key : String) : Machine :=
  { m with credentials := m.credentials.map (·.withKey key) }

/-- The client with another key in its session. -/
def Client.withKey (c : Client) (key : String) : Client :=
  { c with machine := c.machine.withKey key }

/-- The effect with another key, if there is one in it. -/
def Effect.withKey (key : String) : Effect → Effect
  | .dial attempt url _ => .dial attempt url key
  | .ingest attempt ticket _ roll => .ingest attempt ticket key roll
  | effect => effect

/-- The effects are the same but for the key in them. -/
def Effect.SameButKey (effect effect' : Effect) : Prop := ∃ key, effect' = effect.withKey key

/-- Keys are not in what is shown. -/
theorem shown_eq_of_sameButKey {effects effects' : List Effect}
    (h : List.Forall₂ Effect.SameButKey effects effects') : shown effects' = shown effects := by
  induction h with
  | nil => rfl
  | @cons effect effect' _ _ heffect _ ih =>
      obtain ⟨key, rfl⟩ := heffect
      cases effect with
      | emit event => exact congrArg (.emit event :: ·) ih
      | reply ticket reply => exact congrArg (.reply ticket reply :: ·) ih
      | _ => exact ih

/-- The turns are at the same moment, and the same but for the key in a command to connect, which is
not empty in either. -/
inductive Turn.SameButKey : Turn → Turn → Prop where
  | same (t : Turn) : SameButKey t t
  | connect (m : Moment) (ticket : Ticket) (table : TableId) {key key' : String}
      (hkey : key ≠ "") (hkey' : key' ≠ "") :
      SameButKey ⟨m, .command ticket (.connect ⟨key, table⟩)⟩
        ⟨m, .command ticket (.connect ⟨key', table⟩)⟩

/-- A key in a text counts without the blanks around it. -/
theorem Turn.sameButKey_ofTexts (m : Moment) (ticket : Ticket) (table : String) {key key' : String}
    (hkey : Text.trim key ≠ "") (hkey' : Text.trim key' ≠ "") :
    Turn.SameButKey ⟨m, .command ticket (.connect (.ofTexts key table))⟩
      ⟨m, .command ticket (.connect (.ofTexts key' table))⟩ :=
  .connect m ticket (Text.trim table) hkey hkey'

namespace Credentials

theorem validate_key {key key' : String} (hempty : key.isEmpty = key'.isEmpty) (table : TableId) :
    validate ⟨key', table⟩ = validate ⟨key, table⟩ := by
  simp only [validate, hempty]

/-- The text for diagnostics leaves the key out. -/
theorem debugText_withKey (c : Credentials) (key : String) :
    (c.withKey key).debugText = c.debugText := rfl

end Credentials

namespace Machine

variable (m : Machine) (key : String)

theorem isInFlight_withKey (attempt : Attempt) :
    (m.withKey key).isInFlight attempt = m.isInFlight attempt := rfl

theorem transportConnected_withKey (attempt : Attempt) :
    (m.withKey key).transportConnected attempt =
      Prod.map (·.withKey key) id (m.transportConnected attempt) := by
  unfold transportConnected
  rw [isInFlight_withKey]
  cases m.isInFlight attempt with
  | false => rfl
  | true =>
      obtain ⟨state, current, credentials, deadline, timeout⟩ := m
      cases credentials <;> rfl

theorem transportFailed_withKey (attempt : Attempt) (reason : String) :
    (m.withKey key).transportFailed attempt reason =
      Prod.map (·.withKey key) id (m.transportFailed attempt reason) := by
  unfold transportFailed
  rw [isInFlight_withKey]
  cases m.isInFlight attempt <;> rfl

theorem transportDisconnected_withKey (attempt : Attempt) :
    (m.withKey key).transportDisconnected attempt =
      Prod.map (·.withKey key) id (m.transportDisconnected attempt) := by
  unfold transportDisconnected
  by_cases hcurrent : attempt = m.attempt
  · rw [if_pos hcurrent, if_pos (show attempt = (m.withKey key).attempt from hcurrent)]
    change (if m.state.isConnected then _ else _) = _
    cases m.state.isConnected <;> rfl
  · rw [if_neg hcurrent, if_neg (show attempt ≠ (m.withKey key).attempt from hcurrent)]
    rfl

theorem disconnect_withKey :
    (m.withKey key).disconnect = Prod.map (·.withKey key) id m.disconnect := by
  unfold disconnect
  change (if m.state.isActive then _ else _) = _
  cases m.state.isActive <;> rfl

/-- A session that is asked to connect with another key refuses for the same reason, or else begins
the same attempt with that key. -/
theorem connect_withKey (now : Instant) {given given' : String}
    (hempty : given.isEmpty = given'.isEmpty) (table : TableId) :
    (∃ error, m.connect now ⟨given, table⟩ = (m, .error error) ∧
        (m.withKey key).connect now ⟨given', table⟩ = (m.withKey key, .error error)) ∨
      ∃ begun attempt, m.connect now ⟨given, table⟩ = (begun, .ok attempt) ∧
        (m.withKey key).connect now ⟨given', table⟩ = (begun.withKey given', .ok attempt) := by
  unfold connect
  rw [Credentials.validate_key hempty]
  cases Credentials.validate ⟨given, table⟩ with
  | error error => exact .inl ⟨error, rfl, rfl⟩
  | ok _ =>
      change (∃ error, (if m.state.isActive then _ else _) = _ ∧
          (if m.state.isActive then _ else _) = _) ∨
        ∃ begun attempt, (if m.state.isActive then _ else _) = _ ∧
          (if m.state.isActive then _ else _) = _
      cases m.state.isActive with
      | true => exact .inl ⟨_, rfl, rfl⟩
      | false => exact .inr ⟨_, _, rfl, rfl⟩

end Machine

namespace Client

variable (config : Config) (m : Moment) (c : Client) (key : String)

/-- What another key changes about the outcome of a turn. -/
def outcomeWithKey (key : String) (outcome : Client × List Effect) : Client × List Effect :=
  Prod.map (·.withKey key) (List.map (Effect.withKey key)) outcome

theorem resolve_withKey (attempt : Attempt) (reply : Reply) :
    (c.withKey key).resolve attempt reply = outcomeWithKey key (c.resolve attempt reply) := by
  have hpending : (c.withKey key).pending = c.pending := rfl
  unfold resolve
  rw [hpending]
  cases c.pending with
  | none => rfl
  | some p =>
      by_cases hattempt : p.attempt = attempt
      · simp only [if_pos hattempt]
        rfl
      · simp only [if_neg hattempt]
        rfl

theorem machine_withKey : (c.withKey key).machine = c.machine.withKey key := rfl

theorem onConnected_withKey (attempt : Attempt) (link : LinkId) :
    (c.withKey key).onConnected config attempt link =
      outcomeWithKey key (c.onConnected config attempt link) := by
  unfold onConnected
  rw [machine_withKey, c.machine.transportConnected_withKey key attempt]
  rcases c.machine.transportConnected attempt with ⟨machine, error | table⟩
  · rfl
  · have hresolve := resolve_withKey { c with
      machine := machine, dialer := none, listener := some attempt, link := some link } key attempt
        (.ok (.table table))
    simp only [Prod.map, withKey, id] at hresolve ⊢
    rw [hresolve]
    rfl

theorem onConnectFailed_withKey (attempt : Attempt) (error : ClientError) :
    (c.withKey key).onConnectFailed attempt error =
      outcomeWithKey key (c.onConnectFailed attempt error) := by
  unfold onConnectFailed
  rw [machine_withKey, c.machine.transportFailed_withKey key attempt]
  rcases c.machine.transportFailed attempt error.message with ⟨machine, late | _⟩
  · rfl
  · have hresolve := resolve_withKey { c with machine := machine, dialer := none } key attempt
      (.error error)
    simp only [Prod.map, withKey, id] at hresolve ⊢
    rw [hresolve]
    rfl

theorem onDeadline_withKey (attempt : Attempt) :
    (c.withKey key).onDeadline config attempt =
      outcomeWithKey key (c.onDeadline config attempt) := by
  unfold onDeadline Machine.timedOut
  rw [machine_withKey, c.machine.transportFailed_withKey key attempt]
  rcases c.machine.transportFailed attempt SessionState.timeoutReason with ⟨machine, late | _⟩
  · rfl
  · have hresolve := resolve_withKey { c with machine := machine, dialer := none } key attempt
      (.error (.connectionTimeout config.connectTimeout))
    simp only [Prod.map, withKey, id] at hresolve ⊢
    rw [hresolve]
    cases c.dialer <;> rfl

theorem onFrame_withKey (attempt : Attempt) (frame : Frame) :
    (c.withKey key).onFrame m attempt frame = outcomeWithKey key (c.onFrame m attempt frame) := by
  unfold onFrame
  change (if attempt = c.machine.attempt then _ else _) = _
  by_cases hcurrent : attempt = c.machine.attempt
  · rw [if_pos hcurrent, if_pos hcurrent]
    cases InboundEvent.ofFrame m.now frame with
    | error error => rfl
    | ok event =>
        dsimp only [withKey, Machine.withKey, outcomeWithKey, Prod.map]
        rw [List.map_append]
        split <;> cases (route m.toOccasion c.machine.state event).notice <;> rfl
  · rw [if_neg hcurrent, if_neg hcurrent]
    rfl

theorem onClosed_withKey (attempt : Attempt) :
    (c.withKey key).onClosed attempt = outcomeWithKey key (c.onClosed attempt) := by
  unfold onClosed
  rw [machine_withKey, c.machine.transportDisconnected_withKey key attempt]
  rcases c.machine.transportDisconnected attempt with ⟨machine, late | _⟩ <;> rfl

theorem disconnect_withKey (ticket : Ticket) :
    (c.withKey key).disconnect ticket = outcomeWithKey key (c.disconnect ticket) := by
  unfold disconnect
  rw [machine_withKey, c.machine.disconnect_withKey key]
  rcases c.machine.disconnect with ⟨machine, _ | _⟩
  · rfl
  · have hresolve := resolve_withKey
      { c with machine := machine, dialer := none, listener := none, link := none } key
        machine.attempt (.error .cancelled)
    simp only [releaseTransport, Prod.map, withKey, id] at hresolve ⊢
    rw [show (machine.withKey key).attempt = machine.attempt from rfl, hresolve]
    simp only [outcomeWithKey, Prod.map, List.map_append]
    cases c.dialer <;> cases c.listener <;> cases c.link <;> rfl

theorem teardown_withKey : (c.withKey key).teardown = outcomeWithKey key c.teardown := by
  unfold teardown
  rw [machine_withKey, c.machine.disconnect_withKey key]
  simp only [releaseTransport, outcomeWithKey, Prod.map, withKey, List.map_append]
  cases c.dialer <;> cases c.listener <;> cases c.link <;> cases c.pending <;> rfl

theorem startSubmission_withKey (ticket : Ticket) (request : RollRequest) :
    (c.withKey key).startSubmission config m ticket request =
      outcomeWithKey key (c.startSubmission config m ticket request) := by
  have htable : (c.withKey key).machine.state.table? = c.machine.state.table? := rfl
  have hcredentials : (c.withKey key).machine.credentials =
      c.machine.credentials.map (·.withKey key) := rfl
  unfold startSubmission
  rw [htable, hcredentials]
  cases c.machine.state.table? with
  | none => rfl
  | some table =>
      cases c.machine.credentials with
      | none => rfl
      | some credentials =>
          dsimp only [Option.map]
          split <;> rfl

theorem onIngested_withKey (attempt : Attempt) (ticket : Ticket) (roll : NewRoll)
    (result : Except IngestError IngestReceipt) :
    (c.withKey key).onIngested attempt ticket roll result =
      outcomeWithKey key (c.onIngested attempt ticket roll result) := by
  unfold onIngested
  cases result with
  | error error => rfl
  | ok receipt =>
      change (if c.machine.isLive attempt then (if c.feed.contains _ then _ else _) else _) = _
      dsimp only
      split
      · split <;> rfl
      · rfl

/-- A client with another key does the same, but for the key. -/
theorem step_withKey {input : Input}
    (hinput : ∀ ticket credentials, input ≠ .command ticket (.connect credentials)) :
    (c.withKey key).step config m input = outcomeWithKey key (c.step config m input) := by
  unfold step
  change (if c.running then _ else _) = _
  cases c.running with
  | false =>
      cases input with
      | report report => cases report <;> rfl
      | _ => rfl
  | true =>
      cases input with
      | command ticket command =>
          cases command with
          | connect credentials => exact absurd rfl (hinput ticket credentials)
          | disconnect => exact c.disconnect_withKey key ticket
          | submit request => exact c.startSubmission_withKey config m key ticket request
          | clear => rfl
          | snapshot => rfl
          | shutdown =>
              simp only [onCommand, if_true, c.teardown_withKey key]
              rfl
      | report report =>
          cases report with
          | connected attempt link => exact c.onConnected_withKey config key attempt link
          | connectFailed attempt error => exact c.onConnectFailed_withKey key attempt error
          | frame attempt frame => exact c.onFrame_withKey m key attempt frame
          | closed attempt reason => exact c.onClosed_withKey key attempt
          | ingested attempt ticket roll result =>
              exact c.onIngested_withKey key attempt ticket roll result
      | deadline attempt => exact c.onDeadline_withKey config key attempt
      | abandoned => exact c.teardown_withKey key

/-- A command to connect with another key has the same outcome, but for the key. -/
theorem step_connect {given given' : String} (hempty : given.isEmpty = given'.isEmpty)
    (ticket : Ticket) (table : TableId) : ∃ new,
    (c.withKey key).step config m (.command ticket (.connect ⟨given', table⟩)) =
      outcomeWithKey new (c.step config m (.command ticket (.connect ⟨given, table⟩))) := by
  unfold step
  change ∃ new, (if c.running then _ else _) = _
  cases c.running with
  | false => exact ⟨key, rfl⟩
  | true =>
      simp only [onCommand, startConnect, if_true, machine_withKey]
      rcases c.machine.connect_withKey key m.clock hempty table with
        ⟨error, hsame, hother⟩ | ⟨begun, attempt, hsame, hother⟩
      · rw [hsame, hother]
        exact ⟨key, rfl⟩
      · rw [hsame, hother]
        exact ⟨given', rfl⟩

/-! ## Turns -/

/-- The clients are the same but for the key in their sessions. -/
def SameButKey (c c' : Client) : Prop := ∃ key, c' = c.withKey key

theorem SameButKey.refl : c.SameButKey c := by
  obtain ⟨⟨state, attempt, credentials, deadline, timeout⟩, feed⟩ := c
  cases credentials with
  | none => exact ⟨"", rfl⟩
  | some credentials => exact ⟨credentials.apiKey, rfl⟩

variable {c} {c' : Client} {t t' : Turn}

theorem sameButKey_of_outcome {key : String} {outcome outcome' : Client × List Effect}
    (h : outcome' = outcomeWithKey key outcome) :
    outcome.1.SameButKey outcome'.1 ∧ List.Forall₂ Effect.SameButKey outcome.2 outcome'.2 := by
  subst h
  refine ⟨⟨key, rfl⟩, List.forall₂_map_right_iff.mpr (List.forall₂_same.mpr fun effect _ => ?_)⟩
  exact ⟨key, rfl⟩

/-- Turns that are the same but for the key keep clients so, and have the same effects but for the
key. -/
theorem SameButKey.turn (h : c.SameButKey c') (ht : t.SameButKey t') :
    (c.next config t).SameButKey (c'.next config t') ∧
      List.Forall₂ Effect.SameButKey (c.effectsOf config t) (c'.effectsOf config t') := by
  obtain ⟨key, rfl⟩ := h
  cases ht with
  | @connect m ticket table given given' hgiven hgiven' =>
      have hempty : given.isEmpty = given'.isEmpty := by
        rw [String.isEmpty_eq_false_iff.mpr hgiven, String.isEmpty_eq_false_iff.mpr hgiven']
      obtain ⟨new, hstep⟩ := c.step_connect config m key hempty ticket table
      exact sameButKey_of_outcome hstep
  | same t =>
      by_cases hinput : ∃ ticket credentials, t.input = .command ticket (.connect credentials)
      · obtain ⟨m, input⟩ := t
        obtain ⟨ticket, ⟨given, table⟩, rfl⟩ := hinput
        have hempty : given.isEmpty = given.isEmpty := rfl
        obtain ⟨new, hstep⟩ := c.step_connect config m key hempty ticket table
        exact sameButKey_of_outcome hstep
      · exact sameButKey_of_outcome (c.step_withKey config t.moment key
          fun ticket credentials heq => hinput ⟨ticket, credentials, heq⟩)

end Client

end DiceTable
