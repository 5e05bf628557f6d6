import DiceTable.Session.Machine

/-!
# What a session machine does when it is told something

Every operation either changes the machine in one way, under conditions that are listed here, or
leaves it as it was.  A *call* is an operation with its arguments.  `perform_spec` sums all six of
them up, so that an invariant is checked against the six cases of `Move` and nothing else.
-/

namespace DiceTable.Machine

/-! ## The machines that an operation leads to -/

/-- The machine at the start of its next attempt. -/
def begin (m : Machine) (now : Instant) (c : Credentials) : Machine :=
  { m with
    state := .connecting
    attempt := m.attempt + 1
    credentials := some c
    deadline := some ⟨m.attempt + 1, now + m.timeout.nanoseconds⟩ }

/-- The machine with its attempt out of flight. -/
def settle (m : Machine) (state : SessionState) : Machine :=
  { m with state := state, deadline := none }

/-- The machine after the loss of its connection. -/
def lose (m : Machine) : Machine := { m with state := .disconnected }

section Fields

variable (m : Machine) (now : Instant) (c : Credentials) (state : SessionState)

@[simp] theorem begin_state : (m.begin now c).state = .connecting := rfl
@[simp] theorem begin_attempt : (m.begin now c).attempt = m.attempt + 1 := rfl
@[simp] theorem begin_deadline :
    (m.begin now c).deadline = some ⟨m.attempt + 1, now + m.timeout.nanoseconds⟩ := rfl
@[simp] theorem settle_state : (m.settle state).state = state := rfl
@[simp] theorem settle_attempt : (m.settle state).attempt = m.attempt := rfl
@[simp] theorem settle_deadline : (m.settle state).deadline = none := rfl
@[simp] theorem lose_state : m.lose.state = .disconnected := rfl

end Fields

/-! ## The operations one by one -/

section Operations

variable {m : Machine}

/-- An attempt starts when the credentials are complete and no other attempt is under way. -/
theorem connect_cases (m : Machine) (now : Instant) (c : Credentials) :
    (∃ error, m.connect now c = (m, .error error)) ∨
      c.validate = .ok () ∧ m.state.isActive = false ∧
        m.connect now c = (m.begin now c, .ok (m.attempt + 1)) := by
  unfold connect
  cases hvalid : c.validate with
  | error error => exact .inl ⟨error, rfl⟩
  | ok =>
      by_cases hactive : m.state.isActive = true
      · exact .inl ⟨.alreadyActive m.state.text, by simp [hactive]⟩
      · exact .inr ⟨rfl, by simpa using hactive, by simp [hactive, begin]⟩

theorem transportConnected_of_connecting {c : Credentials} (hstate : m.state = .connecting)
    (hcredentials : m.credentials = some c) :
    m.transportConnected m.attempt = (m.settle (.connected c.table), .ok c.table) := by
  simp [transportConnected, isInFlight, hstate, hcredentials, settle]

theorem transportConnected_cases (m : Machine) (attempt : Attempt) :
    (m.isInFlight attempt = false ∨ m.credentials = none) ∧
        (∃ error, m.transportConnected attempt = (m, .error error)) ∨
      ∃ c, attempt = m.attempt ∧ m.state = .connecting ∧ m.credentials = some c := by
  cases hflight : m.isInFlight attempt with
  | false => exact .inl ⟨.inl rfl, .staleAttempt attempt, by simp [transportConnected, hflight]⟩
  | true =>
      obtain ⟨hattempt, hstate⟩ := isInFlight_iff.mp hflight
      cases hcredentials : m.credentials with
      | none =>
          refine .inl ⟨.inr rfl, .invalidTransition m.state.text .connected, ?_⟩
          simp [transportConnected, hflight, hcredentials]
      | some c => exact .inr ⟨c, hattempt, hstate, rfl⟩

theorem transportFailed_of_connecting (hstate : m.state = .connecting) (reason : String) :
    m.transportFailed m.attempt reason = (m.settle (.failed reason), .ok ()) := by
  simp [transportFailed, isInFlight, hstate, settle]

theorem transportFailed_cases (m : Machine) (attempt : Attempt) (reason : String) :
    m.isInFlight attempt = false ∧
        m.transportFailed attempt reason = (m, .error (.staleAttempt attempt)) ∨
      attempt = m.attempt ∧ m.state = .connecting := by
  cases hflight : m.isInFlight attempt with
  | false => exact .inl ⟨rfl, by simp [transportFailed, hflight]⟩
  | true => exact .inr (isInFlight_iff.mp hflight)

theorem transportDisconnected_of_connected {table : TableId} (hstate : m.state = .connected table) :
    m.transportDisconnected m.attempt = (m.lose, .ok ()) := by
  simp [transportDisconnected, hstate, SessionState.isConnected, lose]

theorem transportDisconnected_cases (m : Machine) (attempt : Attempt) :
    m.isLive attempt = false ∧ (∃ error, m.transportDisconnected attempt = (m, .error error)) ∨
      ∃ table, attempt = m.attempt ∧ m.state = .connected table := by
  by_cases hattempt : attempt = m.attempt
  · cases hstate : m.state with
    | connected table => exact .inr ⟨table, hattempt, rfl⟩
    | _ =>
        refine .inl ⟨by simp [isLive, hstate, SessionState.isConnected],
          .invalidTransition m.state.text .disconnected, ?_⟩
        simp [transportDisconnected, hattempt, hstate, SessionState.isConnected]
  · refine .inl ⟨by simp [isLive, Ne.symm hattempt], .staleAttempt attempt, ?_⟩
    simp [transportDisconnected, hattempt]

theorem disconnect_of_active (hactive : m.state.isActive = true) :
    m.disconnect = (m.settle .disconnected, true) := by
  simp [disconnect, hactive, settle]

theorem disconnect_of_inactive (hinactive : m.state.isActive = false) :
    m.disconnect = (m, false) := by
  simp [disconnect, hinactive]

theorem isActive_disconnect (m : Machine) : m.disconnect.1.state.isActive = false := by
  cases hactive : m.state.isActive with
  | true =>
      rw [disconnect_of_active hactive]
      rfl
  | false =>
      rw [disconnect_of_inactive hactive]
      exact hactive

end Operations

/-! ## All operations at once -/

/-- An operation of the machine with its arguments. -/
inductive Call where
  | connect (now : Instant) (credentials : Credentials)
  | transportConnected (attempt : Attempt)
  | transportFailed (attempt : Attempt) (reason : String)
  | timedOut (attempt : Attempt)
  | transportDisconnected (attempt : Attempt)
  | disconnect
  deriving DecidableEq, Repr

/-- What a call is answered with. -/
inductive Answer where
  | started (result : Except SessionError Attempt)
  | opened (result : Except SessionError TableId)
  | taken (result : Except SessionError Unit)
  | ended (any : Bool)

/-- Whether the answer is a success. -/
def Answer.isOk : Answer → Bool
  | .started (.ok _) => true
  | .opened (.ok _) => true
  | .taken (.ok _) => true
  | .ended any => any
  | _ => false

/-- Carries out a call. -/
def perform (m : Machine) : Call → Machine × Answer
  | .connect now c => (m.connect now c).map id .started
  | .transportConnected attempt => (m.transportConnected attempt).map id .opened
  | .transportFailed attempt reason => (m.transportFailed attempt reason).map id .taken
  | .timedOut attempt => (m.timedOut attempt).map id .taken
  | .transportDisconnected attempt => (m.transportDisconnected attempt).map id .taken
  | .disconnect => m.disconnect.map id .ended

/-- The calls that succeed, with what they need and where they lead. -/
inductive Move (m : Machine) : Call → Machine → Prop where
  | connect {now : Instant} {c : Credentials} (hvalid : c.validate = .ok ())
      (hinactive : m.state.isActive = false) : Move m (.connect now c) (m.begin now c)
  | transportConnected {c : Credentials} (hstate : m.state = .connecting)
      (hcredentials : m.credentials = some c) :
      Move m (.transportConnected m.attempt) (m.settle (.connected c.table))
  | transportFailed {reason : String} (hstate : m.state = .connecting) :
      Move m (.transportFailed m.attempt reason) (m.settle (.failed reason))
  | timedOut (hstate : m.state = .connecting) :
      Move m (.timedOut m.attempt) (m.settle (.failed SessionState.timeoutReason))
  | transportDisconnected {table : TableId} (hstate : m.state = .connected table) :
      Move m (.transportDisconnected m.attempt) m.lose
  | disconnect (hactive : m.state.isActive = true) : Move m .disconnect (m.settle .disconnected)

/-- A call that succeeds makes a move, and any other call changes nothing. -/
theorem perform_spec (m : Machine) (call : Call) :
    (m.perform call).2.isOk = true ∧ Move m call (m.perform call).1 ∨
      (m.perform call).2.isOk = false ∧ (m.perform call).1 = m := by
  cases call with
  | connect now c =>
      rcases connect_cases m now c with ⟨error, h⟩ | ⟨hvalid, hinactive, h⟩
      · exact .inr (by simp [perform, h, Answer.isOk])
      · exact .inl (by simpa [perform, h, Answer.isOk] using Move.connect hvalid hinactive)
  | transportConnected attempt =>
      rcases transportConnected_cases m attempt with ⟨_, error, h⟩ | ⟨c, rfl, hstate, hcredentials⟩
      · exact .inr (by simp [perform, h, Answer.isOk])
      · have h := transportConnected_of_connecting hstate hcredentials
        exact .inl (by
          simpa [perform, h, Answer.isOk] using Move.transportConnected hstate hcredentials)
  | transportFailed attempt reason =>
      rcases transportFailed_cases m attempt reason with ⟨_, h⟩ | ⟨rfl, hstate⟩
      · exact .inr (by simp [perform, h, Answer.isOk])
      · have h := transportFailed_of_connecting hstate reason
        exact .inl (by simpa [perform, h, Answer.isOk] using Move.transportFailed hstate)
  | timedOut attempt =>
      rcases transportFailed_cases m attempt SessionState.timeoutReason with
        ⟨_, h⟩ | ⟨rfl, hstate⟩
      · exact .inr (by simp [perform, timedOut, h, Answer.isOk])
      · have h := transportFailed_of_connecting hstate SessionState.timeoutReason
        exact .inl (by simpa [perform, timedOut, h, Answer.isOk] using Move.timedOut hstate)
  | transportDisconnected attempt =>
      rcases transportDisconnected_cases m attempt with ⟨_, error, h⟩ | ⟨table, rfl, hstate⟩
      · exact .inr (by simp [perform, h, Answer.isOk])
      · have h := transportDisconnected_of_connected hstate
        exact .inl (by simpa [perform, h, Answer.isOk] using Move.transportDisconnected hstate)
  | disconnect =>
      cases hactive : m.state.isActive with
      | true =>
          have h := disconnect_of_active hactive
          exact .inl (by simpa [perform, h, Answer.isOk] using Move.disconnect hactive)
      | false =>
          have h := disconnect_of_inactive hactive
          exact .inr (by simp [perform, h, Answer.isOk])

end DiceTable.Machine
