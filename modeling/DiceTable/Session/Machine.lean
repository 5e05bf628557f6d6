import DiceTable.Session.Credentials
import DiceTable.Duration

/-!
# The session machine

The machine owns the state of a session.  It performs nothing itself: whoever drives it opens and
closes connections and tells it the outcome, together with the attempt that the outcome belongs to.
What is told of an attempt that is over is refused.

An attempt has until its deadline to succeed.  The deadline is armed exactly while the attempt is in
flight.  Every operation returns the machine along with its answer; an operation that answers with
an error returns the machine as it was.
-/

namespace DiceTable

/-- A moment of the clock that measures deadlines, in nanoseconds. -/
abbrev Instant := Nat

/-- The moment at which an attempt has taken too long. -/
structure Deadline where
  attempt : Attempt
  due : Instant
  deriving DecidableEq, Repr

/-- A session and what it remembers. -/
structure Machine where
  state : SessionState
  attempt : Attempt
  credentials : Option Credentials
  deadline : Option Deadline
  timeout : Duration
  deriving DecidableEq, Repr

namespace Machine

/-- The time that an attempt may take unless something else is asked for. -/
def defaultTimeout : Duration := .ofSeconds 10

/-- An idle session. -/
def new (timeout : Duration) : Machine where
  state := .idle
  attempt := 0
  credentials := none
  deadline := none
  timeout := timeout

/-- Whether the session is connected on this attempt. -/
def isLive (m : Machine) (attempt : Attempt) : Bool := m.attempt == attempt && m.state.isConnected

/-- Starts a new attempt, and answers with its number. -/
def connect (m : Machine) (now : Instant) (c : Credentials) :
    Machine × Except SessionError Attempt :=
  match c.validate with
  | .error e => (m, .error e)
  | .ok () =>
    if m.state.isActive then (m, .error (.alreadyActive m.state.text))
    else
      let attempt := m.attempt + 1
      ({ m with
          state := .connecting
          attempt := attempt
          credentials := some c
          deadline := some ⟨attempt, now + m.timeout.nanoseconds⟩ }, .ok attempt)

/-- Whether this attempt is the one in flight. -/
def isInFlight (m : Machine) (attempt : Attempt) : Bool :=
  attempt == m.attempt && m.state == .connecting

theorem isInFlight_iff {m : Machine} {attempt : Attempt} :
    m.isInFlight attempt = true ↔ attempt = m.attempt ∧ m.state = .connecting := by
  simp [isInFlight]

/-- The attempt has a connection: answers with the table to subscribe to. -/
def transportConnected (m : Machine) (attempt : Attempt) : Machine × Except SessionError TableId :=
  if m.isInFlight attempt then
    match m.credentials with
    | some c => ({ m with state := .connected c.table, deadline := none }, .ok c.table)
    | none => (m, .error (.invalidTransition m.state.text .connected))
  else (m, .error (.staleAttempt attempt))

/-- The attempt has failed. -/
def transportFailed (m : Machine) (attempt : Attempt) (reason : String) :
    Machine × Except SessionError Unit :=
  if m.isInFlight attempt then ({ m with state := .failed reason, deadline := none }, .ok ())
  else (m, .error (.staleAttempt attempt))

/-- The attempt has taken too long. -/
def timedOut (m : Machine) (attempt : Attempt) : Machine × Except SessionError Unit :=
  m.transportFailed attempt SessionState.timeoutReason

/-- The connection of the attempt is gone. -/
def transportDisconnected (m : Machine) (attempt : Attempt) : Machine × Except SessionError Unit :=
  if attempt = m.attempt then
    if m.state.isConnected then ({ m with state := .disconnected }, .ok ())
    else (m, .error (.invalidTransition m.state.text .disconnected))
  else (m, .error (.staleAttempt attempt))

/-- Ends the session on request, and answers whether there was anything to end. -/
def disconnect (m : Machine) : Machine × Bool :=
  if m.state.isActive then ({ m with state := .disconnected, deadline := none }, true)
  else (m, false)

/-- The attempt whose deadline has passed. -/
def overdue? (m : Machine) (now : Instant) : Option Attempt :=
  m.deadline.bind fun d => if d.due ≤ now then some d.attempt else none

end Machine

end DiceTable
