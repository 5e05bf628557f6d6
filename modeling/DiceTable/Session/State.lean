import DiceTable.Roll.Record

/-!
# Session states

A session is idle until its first attempt to connect.  An attempt is in flight, then connected to a
table, and ends disconnected or failed; from there the next attempt may start.  Attempts are
numbered from one.
-/

namespace DiceTable

/-- The number of an attempt to connect. -/
abbrev Attempt := Nat

/-- An attempt as it is named in messages. -/
def Attempt.text (a : Attempt) : String := "attempt-" ++ toString a

/-- Where a session stands. -/
inductive SessionState where
  | idle
  | connecting
  | connected (table : TableId)
  | disconnected
  | failed (reason : String)
  deriving DecidableEq, Repr

namespace SessionState

/-- The reason of an attempt that took too long. -/
def timeoutReason : String := "timeout"

/-- Whether an attempt is in flight or connected. -/
def isActive : SessionState → Bool
  | .connecting => true
  | .connected _ => true
  | _ => false

/-- Whether the session is connected. -/
def isConnected : SessionState → Bool
  | .connected _ => true
  | _ => false

/-- The table that the session is connected to. -/
def table? : SessionState → Option TableId
  | .connected table => some table
  | _ => none

/-- The state in words. -/
def text : SessionState → String
  | .idle => "idle"
  | .connecting => "connecting"
  | .connected table => "connected to " ++ table
  | .disconnected => "disconnected"
  | .failed reason => "failed: " ++ reason

end SessionState

end DiceTable
