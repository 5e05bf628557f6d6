import DiceTable.Session.State
import DiceTable.Text.Blank
import DiceTable.Text.Quoted

/-!
# Credentials

The key and the table that an attempt is made with, both without blanks around them and neither
empty.  The text for diagnostics leaves the key out.
-/

namespace DiceTable

/-- The fields of the credentials. -/
inductive CredentialField where
  | apiKey
  | table
  deriving DecidableEq, Repr

/-- The name of a field. -/
def CredentialField.name : CredentialField → String
  | .apiKey => "api key"
  | .table => "table id"

/-- The events that a session may be told of at the wrong time. -/
inductive TransportEvent where
  | connected
  | disconnected
  deriving DecidableEq, Repr

/-- The name of an event. -/
def TransportEvent.name : TransportEvent → String
  | .connected => "transport-connected"
  | .disconnected => "transport-disconnected"

/-- The reasons why a session does not do what it is asked to. -/
inductive SessionError where
  /-- A field of the credentials is empty. -/
  | missingCredentials (field : CredentialField)
  /-- The session is active already; the state is given in words. -/
  | alreadyActive (state : String)
  /-- The attempt is over. -/
  | staleAttempt (attempt : Attempt)
  /-- The event does not fit the state, which is given in words. -/
  | invalidTransition (state : String) (event : TransportEvent)
  deriving DecidableEq, Repr

/-- The wording of an error. -/
def SessionError.message : SessionError → String
  | .missingCredentials field => "missing credentials: " ++ field.name ++ " is required"
  | .alreadyActive state => "session is already " ++ state
  | .staleAttempt attempt => "event for stale " ++ attempt.text ++ " ignored"
  | .invalidTransition state event => "cannot handle " ++ event.name ++ " while " ++ state

/-- A key and a table. -/
structure Credentials where
  apiKey : String
  table : TableId
  deriving DecidableEq, Repr

namespace Credentials

/-- The credentials in two texts, without the blanks around them. -/
def ofTexts (apiKey table : String) : Credentials := ⟨Text.trim apiKey, Text.trim table⟩

/-- Refuses credentials with an empty field; the key is looked at first. -/
def validate (c : Credentials) : Except SessionError Unit :=
  if c.apiKey.isEmpty then .error (.missingCredentials .apiKey)
  else if c.table.isEmpty then .error (.missingCredentials .table)
  else .ok ()

/-- The text for diagnostics. -/
def debugText (c : Credentials) : String :=
  "Credentials \x7b api_key: \"<redacted>\", table_id: TableId(" ++ Text.quoted c.table ++ ") \x7d"

end Credentials

end DiceTable
